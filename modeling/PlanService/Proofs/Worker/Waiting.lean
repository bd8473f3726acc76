import Mathlib.Logic.Function.Iterate
import PlanService.Engine.Simulated
import PlanService.Proofs.Board.Announcement
import PlanService.Proofs.Worker.Run

/-! # Waiting for a completion

`Worker.await` reads a subscription in one go.  Somebody who waits is not alone, though: between
any two of their steps the worker does something and others publish.  A `Wait` takes the steps
one at a time.  While it reads it keeps nothing but its subscription, so that it can be given up
there and begun again at no loss; once it has asked for the record it goes on to the answer.

What makes a wait sound is that nothing about the task is behind its subscription unless the
task is complete and the wait is about to see this in the record.
-/

namespace PlanService

/-- Where somebody is who waits for a completion. -/
inductive Wait where
  | reading (sub : Subscription)
  -- Entries were lost, and the worker is asked for the record.
  | asking (sub : Subscription)
  | answered (sub : Subscription) (answer : Except WorkerError (Option TrackedTask))
  | ended (result : Received) (sub : Subscription)

namespace Worker

variable {σ : Type}

theorem await_of_kept {worker : Worker σ} {sub : Subscription}
    (kept : ¬ sub.cursor < worker.board.bus.oldest) :
    worker.await sub = sub.receive worker.board.bus := by
  unfold await
  split
  next skipped later read => exact absurd read (Subscription.receive_ne_lagged kept skipped later)
  next => rfl

/-- A reader that lost entries is told what the record says, or goes on with what is kept. -/
theorem await_of_lagged {worker : Worker σ} {sub : Subscription}
    (lagged : sub.cursor < worker.board.bus.oldest) :
    worker.await sub =
      match worker.get sub.id with
      | .error _ => (.closed, { sub with cursor := worker.board.bus.oldest })
      | .ok record =>
        match record.filter (·.isComplete) with
        | some record => (.completion record.completion, { sub with cursor := worker.board.bus.oldest })
        | none => { sub with cursor := worker.board.bus.oldest }.receive worker.board.bus := by
  have passed : sub.receive worker.board.bus =
      (.lagged (worker.board.bus.oldest - sub.cursor), { sub with cursor := worker.board.bus.oldest }) :=
    if_pos lagged
  unfold await
  split
  next skipped later read =>
    obtain ⟨-, rfl⟩ := Prod.mk.inj (passed.symm.trans read)
    rfl
  next notLagged => exact absurd passed (notLagged _ _)

/-- Nobody else announces the task for the worker. -/
def Action.Unannounced (id : TaskId) : Action σ → Prop
  | .publish completion => completion.id ≠ id
  | _ => True

/-- An action neither stops the worker nor announces the task for it. -/
def Action.Spares (id : TaskId) : Action σ → Prop
  | .command .shutdown => False
  | .publish completion => completion.id ≠ id
  | _ => True

section Acting

variable [Engine σ] {worker : Worker σ} {action : Action σ} {id : TaskId}

theorem alive_next (alive : worker.alive = true) (spares : action.Spares id) :
    (worker.next action).alive = true := by
  cases action with
  | command asked =>
    rw [Worker.next, Worker.handle_eq, alive, Bool.true_and]
    cases asked with
    | shutdown => cases spares
    | _ => rfl
  | takeUp =>
    have same : worker.takeUp.alive = worker.alive := by rw [Worker.takeUp_eq]
    exact same.trans alive
  | _ => exact alive

theorem closed_next (worker : Worker σ) (action : Action σ) :
    (worker.next action).board.bus.closed = worker.board.bus.closed := by
  rw [board_next]
  cases action with
  | publish completion => rfl
  | _ => exact Board.closed_performAll ..

theorem get?_next (action : Action σ) {record : TrackedTask}
    (found : worker.board.registry.get? id = some record) :
    ∃ later, (worker.next action).board.registry.get? id = some later ∧ record.Advances later := by
  rw [registry_next]
  exact Board.get?_performAll _ found

theorem announces_next_of_unannounced {position : Nat} (announces : worker.board.Announces position id)
    (unannounced : action.Unannounced id) : (worker.next action).board.Announces position id := by
  rw [board_next]
  cases action with
  | publish completion => exact announces.publish unannounced
  | _ => exact announces.performAll _

theorem announces_next {position : Nat} (announces : worker.board.Announces position id)
    (spares : action.Spares id) : (worker.next action).board.Announces position id := by
  refine announces_next_of_unannounced announces ?_
  cases action with
  | publish completion => exact spares
  | _ => trivial

end Acting

end Worker

namespace Wait

variable {σ : Type}

def next (worker : Worker σ) : Wait → Wait
  | reading sub =>
    match sub.readOne worker.board.bus with
    | (some (.lagged _), sub) => asking sub
    | (some .pending, sub) => reading sub
    | (some received, sub) => ended received sub
    | (none, sub) => reading sub
  | asking sub => answered sub (worker.get sub.id)
  | answered sub (.error _) => ended .closed sub
  | answered sub (.ok record) =>
    match record.filter (·.isComplete) with
    | some record => ended (.completion record.completion) sub
    | none => reading sub
  | ended result sub => ended result sub

/-- Where a wait is that has read what there is. -/
def ofResult : Received × Subscription → Wait
  | (.pending, sub) => reading sub
  | (received, sub) => ended received sub

/-- A wait that nothing interferes with reads what there is to receive. -/
theorem exists_steps_receive (worker : Worker σ) (sub : Subscription)
    (inLog : sub.cursor ≤ worker.board.bus.log.size) (kept : ¬ sub.cursor < worker.board.bus.oldest) :
    ∃ steps, (next worker)^[steps] (reading sub) = ofResult (sub.receive worker.board.bus) := by
  cases entry : worker.board.bus.log[sub.cursor]? with
  | none =>
    have read := sub.readOne_at_end kept entry
    refine ⟨1, ?_⟩
    rw [Subscription.receive_eq_readOne inLog, Function.iterate_one, next, read]
    cases worker.board.bus.closed <;> rfl
  | some completion =>
    have read := sub.readOne_of_entry kept entry
    have inside : sub.cursor < worker.board.bus.log.size := (Array.getElem?_eq_some_iff.mp entry).1
    by_cases own : completion.id = sub.id
    · refine ⟨1, ?_⟩
      rw [Subscription.receive_eq_readOne inLog, Function.iterate_one, next, read, if_pos own]
      rfl
    · obtain ⟨steps, last⟩ := exists_steps_receive worker { sub with cursor := sub.cursor + 1 }
        (by exact inside) (by simp only; omega)
      refine ⟨steps + 1, ?_⟩
      rw [Subscription.receive_eq_readOne inLog, Function.iterate_succ_apply, next, read, if_neg own]
      exact last
termination_by worker.board.bus.log.size - sub.cursor

/-- A wait that nothing interferes with is `Worker.await`. -/
theorem exists_steps_await (worker : Worker σ) (sub : Subscription)
    (inLog : sub.cursor ≤ worker.board.bus.log.size) :
    ∃ steps, (next worker)^[steps] (reading sub) = ofResult (worker.await sub) := by
  by_cases lagged : sub.cursor < worker.board.bus.oldest
  · have asks : next worker (reading sub) = asking { sub with cursor := worker.board.bus.oldest } := by
      rw [next, sub.readOne_of_lagged lagged]
    rw [Worker.await_of_lagged lagged]
    cases told : worker.get sub.id with
    | error error =>
      refine ⟨3, ?_⟩
      rw [Function.iterate_succ_apply, asks, Function.iterate_succ_apply, next, told]
      rfl
    | ok record =>
      dsimp only
      cases complete : record.filter (·.isComplete) with
      | some record =>
        refine ⟨3, ?_⟩
        rw [Function.iterate_succ_apply, asks, Function.iterate_succ_apply, next, told,
          Function.iterate_one, next, complete]
        rfl
      | none =>
        obtain ⟨steps, last⟩ := exists_steps_receive worker { sub with cursor := worker.board.bus.oldest }
          (Nat.sub_le ..) (Nat.lt_irrefl _)
        refine ⟨steps + 3, ?_⟩
        rw [Function.iterate_succ_apply, asks, Function.iterate_succ_apply, next, told,
          Function.iterate_succ_apply, next, complete]
        exact last
  · obtain ⟨steps, last⟩ := exists_steps_receive worker sub inLog lagged
    exact ⟨steps, last.trans (congrArg ofResult (Worker.await_of_kept lagged).symm)⟩

/-- How a wait for a task stands when this is the task's record: what is announced for it is
still to be read, or the record is complete and about to be seen. -/
def Sound (id : TaskId) (record : TrackedTask) (board : Board) : Wait → Prop
  | reading sub => sub.id = id ∧ board.Announces sub.cursor id
  | asking sub => sub.id = id ∧ (record.isComplete = true ∨ board.Announces sub.cursor id)
  | answered sub answer => sub.id = id ∧ ∃ seen, answer = .ok (some seen) ∧
      (seen.isComplete = true ∧ seen = record ∨
        seen.isComplete = false ∧ board.Announces sub.cursor id)
  | ended result _ => record.isComplete = true ∧ result = .completion record.completion

/-- A wait stays sound while the record advances and nothing announced is lost. -/
theorem Sound.mono {id : TaskId} {record later : TrackedTask} {board other : Board} {wait : Wait}
    (sound : wait.Sound id record board) (advances : record.Advances later)
    (keeps : ∀ position, board.Announces position id → other.Announces position id) :
    wait.Sound id later other := by
  cases wait with
  | reading sub => exact ⟨sound.1, keeps _ sound.2⟩
  | asking sub =>
    refine ⟨sound.1, sound.2.imp (fun complete => ?_) (keeps _)⟩
    rw [advances.frozen complete]
    exact complete
  | answered sub answer =>
    obtain ⟨same, seen, told, ⟨complete, rfl⟩ | ⟨incomplete, announces⟩⟩ := sound
    · exact ⟨same, seen, told, .inl ⟨complete, (advances.frozen complete).symm⟩⟩
    · exact ⟨same, seen, told, .inr ⟨incomplete, keeps _ announces⟩⟩
  | ended result sub =>
    obtain ⟨complete, rfl⟩ := sound
    rw [Sound, advances.frozen complete]
    exact ⟨complete, rfl⟩

end Wait

/-- Somebody waits for a task of a worker that is alive and whose bus is open. -/
structure Waits {σ : Type} (id : TaskId) (record : TrackedTask) (worker : Worker σ) (wait : Wait) :
    Prop where
  alive : worker.alive = true
  isOpen : worker.board.bus.closed = false
  found : worker.board.registry.get? id = some record
  sound : wait.Sound id record worker.board

namespace Waits

variable {σ : Type} {id : TaskId} {record : TrackedTask} {worker : Worker σ} {wait : Wait}

theorem eq_of_completion? (found : worker.board.registry.get? id = some record) {completion : Completion}
    (due : worker.board.registry.completion? id = some completion) :
    record.isComplete = true ∧ completion = record.completion := by
  obtain ⟨other, same, complete, is⟩ := Registry.completion?_eq_some_iff.mp due
  rw [found] at same
  cases same
  exact ⟨complete, is⟩

theorem next (waits : Waits id record worker wait) : Waits id record worker (wait.next worker) := by
  obtain ⟨alive, isOpen, found, sound⟩ := waits
  refine ⟨alive, isOpen, found, ?_⟩
  cases wait with
  | ended result sub => exact sound
  | asking sub =>
    obtain ⟨same, sound⟩ := sound
    have told : worker.get sub.id = .ok (some record) := by rw [Worker.get, if_pos alive, same, found]
    refine ⟨same, record, told, ?_⟩
    cases complete : record.isComplete with
    | true => exact .inl ⟨rfl, rfl⟩
    | false => exact .inr ⟨rfl, sound.resolve_left (by simp [complete])⟩
  | answered sub answer =>
    obtain ⟨same, seen, rfl, ⟨complete, rfl⟩ | ⟨incomplete, announces⟩⟩ := sound
    · simp only [Wait.next, Option.filter, complete, if_true]
      exact ⟨complete, rfl⟩
    · simp only [Wait.next, Option.filter, incomplete]
      exact ⟨same, announces⟩
  | reading sub =>
    obtain ⟨same, announces⟩ := sound
    by_cases lagged : sub.cursor < worker.board.bus.oldest
    · rw [Wait.next, sub.readOne_of_lagged lagged]
      refine ⟨same, ?_⟩
      -- What is lost was nothing, unless the record can be seen to be complete.
      cases due : worker.board.registry.completion? id with
      | some completion => exact .inl (eq_of_completion? found due).1
      | none => exact .inr (announces.later due (Nat.le_of_lt lagged) (Nat.sub_le ..))
    · cases entry : worker.board.bus.log[sub.cursor]? with
      | none =>
        rw [Wait.next, sub.readOne_at_end lagged entry, isOpen]
        exact ⟨same, announces⟩
      | some completion =>
        rw [Wait.next, sub.readOne_of_entry lagged entry]
        by_cases own : completion.id = sub.id
        · rw [if_pos own]
          have due := announces.eq_completion entry (own.trans same)
          obtain ⟨complete, rfl⟩ := eq_of_completion? found due
          exact ⟨complete, rfl⟩
        · rw [if_neg own]
          exact ⟨same, announces.skip entry (same ▸ own)⟩

/-- An action that spares the task keeps a wait for it sound. -/
theorem act [Engine σ] (waits : Waits id record worker wait) {action : Worker.Action σ}
    (spares : action.Spares id) :
    ∃ later, record.Advances later ∧ Waits id later (worker.next action) wait := by
  obtain ⟨alive, isOpen, found, sound⟩ := waits
  obtain ⟨later, stillFound, advances⟩ := Worker.get?_next action found
  exact ⟨later, advances, Worker.alive_next alive spares, (worker.closed_next action).trans isOpen, stillFound,
    sound.mono advances fun _ announces => Worker.announces_next announces spares⟩

/-- What a wait is told that reads now: the completion if the task is complete, and that there
is nothing yet if it is not. -/
theorem await_eq {sub : Subscription} (waits : Waits id record worker (.reading sub)) :
    (worker.await sub).1 =
      if record.isComplete then .completion record.completion else .pending := by
  obtain ⟨alive, isOpen, found, same, announces⟩ := waits
  have told : worker.get sub.id = .ok (some record) := by rw [Worker.get, if_pos alive, same, found]
  subst same
  by_cases lagged : sub.cursor < worker.board.bus.oldest
  · rw [Worker.await_of_lagged lagged, told]
    cases complete : record.isComplete with
    | true => simp [Option.filter, complete]
    | false =>
      -- What was lost was about others, and what is kept announces nothing yet.
      have due := Registry.completion?_of_incomplete found complete
      have nothing := (announces.later due (Nat.le_of_lt lagged) (Nat.sub_le ..)).once
      have kept : ¬ { sub with cursor := worker.board.bus.oldest }.cursor < worker.board.bus.oldest :=
        Nat.lt_irrefl _
      have received := Subscription.receive_eq_announced kept
      rw [nothing, due, isOpen] at received
      have unseen : (some record).filter (·.isComplete) = none := by simp [Option.filter, complete]
      dsimp only
      rw [unseen]
      exact received
  · rw [Worker.await_of_kept lagged, Subscription.receive_eq_announced lagged, announces.once, isOpen]
    cases complete : record.isComplete with
    | true =>
      rw [Registry.completion?_of_complete found complete]
      rfl
    | false =>
      rw [Registry.completion?_of_incomplete found complete]
      rfl

end Waits

/-! ## A complete task is not waited for any longer -/

/-- An entry about the task is among the next ones. -/
def Board.Ahead (position : Nat) (id : TaskId) (entries : Nat) (board : Board) : Prop :=
  ∃ i < entries, ∃ completion, board.bus.log[position + i]? = some completion ∧ completion.id = id

namespace Wait

variable {id : TaskId} {board : Board}

/-- A wait has at most so many steps to take, however much is published in the meantime. -/
def Within (id : TaskId) (board : Board) (steps : Nat) : Wait → Prop
  | reading sub => ∃ entries, entries + 2 ≤ steps ∧ board.Ahead sub.cursor id entries
  | asking _ => 2 ≤ steps
  | answered sub answer => ∃ seen, answer = .ok (some seen) ∧
      (seen.isComplete = true ∧ 1 ≤ steps ∨
        seen.isComplete = false ∧ ∃ entries, entries + 3 ≤ steps ∧ board.Ahead sub.cursor id entries)
  | ended _ _ => True

theorem Within.pos {steps : Nat} {wait : Wait} (within : wait.Within id board steps)
    (goesOn : ∀ result sub, wait ≠ .ended result sub) : 0 < steps := by
  cases wait with
  | ended result sub => exact absurd rfl (goesOn result sub)
  | asking sub => exact Nat.lt_of_lt_of_le Nat.two_pos within
  | reading sub =>
    obtain ⟨entries, few, -⟩ := within
    omega
  | answered sub answer =>
    obtain ⟨seen, -, ⟨-, few⟩ | ⟨-, entries, few, -⟩⟩ := within
    · exact few
    · omega

end Wait

namespace Waits

variable {σ : Type} {id : TaskId} {record : TrackedTask} {worker : Worker σ} {wait : Wait}

theorem ahead_of_complete {position : Nat} {board : Board} (announces : board.Announces position id)
    (found : board.registry.get? id = some record) (complete : record.isComplete = true) :
    ∃ entries, board.Ahead position id entries := by
  have once := announces.once
  rw [Registry.completion?_of_complete found complete] at once
  have member : record.completion ∈ board.bus.announced position id := by simp [once]
  obtain ⟨unread, own⟩ := List.mem_filter.mp member
  obtain ⟨i, entry⟩ := List.mem_iff_getElem?.mp unread
  exact ⟨i + 1, i, Nat.lt_succ_self i, record.completion, by simpa using entry, by simpa using own⟩

theorem exists_within (waits : Waits id record worker wait) (complete : record.isComplete = true) :
    ∃ steps, wait.Within id worker.board steps := by
  obtain ⟨-, -, found, sound⟩ := waits
  cases wait with
  | ended result sub => exact ⟨0, trivial⟩
  | asking sub => exact ⟨2, Nat.le_refl 2⟩
  | reading sub =>
    obtain ⟨entries, ahead⟩ := ahead_of_complete sound.2 found complete
    exact ⟨entries + 2, entries, Nat.le_refl _, ahead⟩
  | answered sub answer =>
    obtain ⟨-, seen, told, ⟨seenComplete, -⟩ | ⟨incomplete, announces⟩⟩ := sound
    · exact ⟨1, seen, told, .inl ⟨seenComplete, Nat.le_refl 1⟩⟩
    · obtain ⟨entries, ahead⟩ := ahead_of_complete announces found complete
      exact ⟨entries + 3, seen, told, .inr ⟨incomplete, entries, Nat.le_refl _, ahead⟩⟩

/-- Each step brings a wait for a complete task nearer to its end. -/
theorem within_next (waits : Waits id record worker wait) (complete : record.isComplete = true)
    {steps : Nat} (within : wait.Within id worker.board steps) :
    (wait.next worker).Within id worker.board (steps - 1) := by
  obtain ⟨alive, isOpen, found, sound⟩ := waits
  cases wait with
  | ended result sub => exact trivial
  | asking sub =>
    have told : worker.get sub.id = .ok (some record) := by rw [Worker.get, if_pos alive, sound.1, found]
    exact ⟨record, told, .inl ⟨complete, Nat.le_sub_of_add_le within⟩⟩
  | answered sub answer =>
    obtain ⟨seen, rfl, ⟨seenComplete, -⟩ | ⟨incomplete, entries, few, ahead⟩⟩ := within
    · simp only [Wait.next, Option.filter, seenComplete, if_true]
      exact trivial
    · simp only [Wait.next, Option.filter, incomplete]
      exact ⟨entries, Nat.le_sub_of_add_le few, ahead⟩
  | reading sub =>
    obtain ⟨entries, few, i, inside, own, isOwn, about⟩ := within
    by_cases lagged : sub.cursor < worker.board.bus.oldest
    · rw [Wait.next, sub.readOne_of_lagged lagged]
      have asks : 2 ≤ steps - 1 := by omega
      exact asks
    · cases entry : worker.board.bus.log[sub.cursor]? with
      | none =>
        -- The completion is still ahead, so the log is not at its end.
        have atEnd : worker.board.bus.log.size ≤ sub.cursor := by simpa using entry
        have before := (Array.getElem?_eq_some_iff.mp isOwn).1
        omega
      | some completion =>
        rw [Wait.next, sub.readOne_of_entry lagged entry]
        by_cases same : completion.id = sub.id
        · rw [if_pos same]
          exact trivial
        · rw [if_neg same]
          cases i with
          | zero =>
            rw [Nat.add_zero, entry] at isOwn
            cases isOwn
            exact absurd (about.trans sound.1.symm) same
          | succ i =>
            refine ⟨entries - 1, by omega, i, by omega, own, ?_, about⟩
            rw [← isOwn]
            congr 1
            simp only
            omega

theorem log_next [Engine σ] (worker : Worker σ) (action : Worker.Action σ) :
    worker.board.bus.log.toList <+: (worker.next action).board.bus.log.toList := by
  rw [Worker.board_next]
  cases action with
  | publish completion => simp [Bus.publish]
  | _ => exact Board.log_performAll ..

theorem within_mono {board other : Board} (log : board.bus.log.toList <+: other.bus.log.toList)
    {steps : Nat} (within : wait.Within id board steps) : wait.Within id other steps := by
  have ahead {position entries : Nat} (inLog : board.Ahead position id entries) :
      other.Ahead position id entries := by
    obtain ⟨i, inside, completion, entry, own⟩ := inLog
    refine ⟨i, inside, completion, ?_, own⟩
    obtain ⟨more, grown⟩ := log
    rw [← Array.getElem?_toList] at entry ⊢
    rw [← grown, List.getElem?_append_left (List.getElem?_eq_some_iff.mp entry).1, entry]
  cases wait with
  | ended result sub => exact trivial
  | asking sub => exact within
  | reading sub => exact within.imp fun _ ⟨few, inLog⟩ => ⟨few, ahead inLog⟩
  | answered sub answer =>
    obtain ⟨seen, told, seenComplete | ⟨incomplete, entries, few, inLog⟩⟩ := within
    · exact ⟨seen, told, .inl seenComplete⟩
    · exact ⟨seen, told, .inr ⟨incomplete, entries, few, ahead inLog⟩⟩

end Waits

/-! ## Runs with somebody who waits -/

/-- What happens next: the worker does something, or the one who waits takes a step. -/
inductive Happening (σ : Type) where
  | act (action : Worker.Action σ)
  | step

namespace Happening

variable {σ : Type}

def Spares (id : TaskId) : Happening σ → Prop
  | act action => action.Spares id
  | step => True

def isStep : Happening σ → Bool
  | act _ => false
  | step => true

end Happening

namespace Waits

variable {σ : Type} [Engine σ] {id : TaskId} {record : TrackedTask} {worker : Worker σ} {wait : Wait}

/-- A worker and one who waits, after something happened. -/
def happen (state : Worker σ × Wait) : Happening σ → Worker σ × Wait
  | .act action => (state.1.next action, state.2)
  | .step => (state.1, state.2.next state.1)

theorem happens (waits : Waits id record worker wait) {happening : Happening σ}
    (spares : happening.Spares id) :
    ∃ later, record.Advances later ∧
      Waits id later (happen (worker, wait) happening).1 (happen (worker, wait) happening).2 := by
  cases happening with
  | act action => exact waits.act spares
  | step => exact ⟨record, .refl record, waits.next⟩

theorem happenAll (waits : Waits id record worker wait) {happenings : List (Happening σ)}
    (spared : ∀ happening ∈ happenings, happening.Spares id) :
    ∃ later, record.Advances later ∧
      Waits id later (happenings.foldl happen (worker, wait)).1
        (happenings.foldl happen (worker, wait)).2 := by
  induction happenings generalizing worker wait record with
  | nil => exact ⟨record, .refl record, waits⟩
  | cons happening happenings ih =>
    obtain ⟨middle, earlier, waits⟩ := waits.happens (spared happening List.mem_cons_self)
    obtain ⟨later, advances, waits⟩ :=
      ih waits fun other member => spared other (List.mem_cons_of_mem _ member)
    exact ⟨later, earlier.trans advances, waits⟩

end Waits

end PlanService
