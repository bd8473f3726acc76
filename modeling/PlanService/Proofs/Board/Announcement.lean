import PlanService.Proofs.Board.Change
import PlanService.Proofs.Bus

/-! # Every completion is announced once

Three paths complete a task and two add errors to it, in any order and whatever task is
active.  The invariant `Board.Announces` compares what was announced for a task from some
position of the log on with the completion of its record: nothing before the task is
complete, and then exactly this one completion.  It is inductive because no path adds an
error to a complete record.
-/

namespace PlanService

/-- The completion of a task, once it is complete. -/
def Registry.completion? (registry : Registry) (id : TaskId) : Option Completion :=
  ((registry.get? id).filter (·.isComplete)).map (·.completion)

namespace Registry

theorem completion?_of_complete {registry : Registry} {id : TaskId} {record : TrackedTask}
    (found : registry.get? id = some record) (complete : record.isComplete = true) :
    registry.completion? id = some record.completion := by
  simp [completion?, found, Option.filter, complete]

theorem completion?_of_incomplete {registry : Registry} {id : TaskId} {record : TrackedTask}
    (found : registry.get? id = some record) (incomplete : record.isComplete = false) :
    registry.completion? id = none := by
  simp [completion?, found, Option.filter, incomplete]

theorem completion?_eq_some_iff {registry : Registry} {id : TaskId} {completion : Completion} :
    registry.completion? id = some completion ↔
      ∃ record, registry.get? id = some record ∧ record.isComplete = true ∧
        completion = record.completion := by
  simp only [completion?, Option.map_eq_some_iff, Option.filter_eq_some_iff]
  constructor
  · rintro ⟨record, ⟨found, complete⟩, same⟩
    exact ⟨record, found, complete, same.symm⟩
  · rintro ⟨record, found, complete, same⟩
    exact ⟨record, ⟨found, complete⟩, same.symm⟩

theorem completion?_submit (registry : Registry) (task : Task) (id : TaskId) :
    (registry.submit task).completion? id = registry.completion? id := by
  simp only [completion?, get?_submit]
  cases registry.get? id with
  | some record => rfl
  | none =>
    simp only [Option.none_or]
    split <;> rfl

end Registry

/-- A completion says that the task failed when its record holds errors. -/
theorem TrackedTask.status_completion (record : TrackedTask) :
    record.completion.status = .failed ↔ record.errors ≠ [] := by
  simp only [completion, Completion.ofErrors, CompletionStatus.ofErrors]
  cases record.errors <;> simp

namespace Board

/-- From `position` on, what was announced for a task is the completion of its record. -/
structure Announces (position : Nat) (id : TaskId) (board : Board) : Prop where
  inLog : position ≤ board.bus.log.size
  once : board.bus.announced position id = (board.registry.completion? id).toList

variable {position : Nat} {id : TaskId} {board : Board}

theorem announces_at_end (board : Board) (incomplete : board.registry.completion? id = none) :
    Announces board.bus.log.size id board :=
  ⟨Nat.le_refl _, by simp [Bus.announced, incomplete, ← Array.length_toList]⟩

/-- While a task is not complete nothing is lost by reading on from a later position. -/
theorem Announces.later (announces : Announces position id board) {later : Nat}
    (incomplete : board.registry.completion? id = none) (le : position ≤ later)
    (inLog : later ≤ board.bus.log.size) : Announces later id board where
  inLog := inLog
  once := by
    have nothing : board.bus.announced position id = [] := by rw [announces.once, incomplete]; rfl
    rw [Bus.announced_of_le le nothing, incomplete]
    rfl

theorem Announces.skip (announces : Announces position id board) {completion : Completion}
    (entry : board.bus.log[position]? = some completion) (foreign : completion.id ≠ id) :
    Announces (position + 1) id board where
  inLog := (Array.getElem?_eq_some_iff.mp entry).1
  once := by
    rw [← announces.once, Bus.announced_of_getElem? entry, if_neg foreign, List.nil_append]

/-- The first entry about the task is its completion. -/
theorem Announces.eq_completion (announces : Announces position id board) {completion : Completion}
    (entry : board.bus.log[position]? = some completion) (own : completion.id = id) :
    board.registry.completion? id = some completion := by
  have once := announces.once
  rw [Bus.announced_of_getElem? entry, if_pos own] at once
  cases due : board.registry.completion? id with
  | none =>
    rw [due] at once
    cases once
  | some other =>
    rw [due] at once
    rw [(List.cons.inj once).1]

/-- What others announce for other tasks is no concern of this one. -/
theorem Announces.publish (announces : Announces position id board) {completion : Completion}
    (foreign : completion.id ≠ id) :
    Announces position id { board with bus := board.bus.publish completion } where
  inLog := by
    have := announces.inLog
    simp only [Bus.publish, Array.size_push]
    omega
  once := by
    rw [Bus.announced_publish announces.inLog, if_neg foreign, List.append_nil]
    exact announces.once

theorem Announces.addError (announces : Announces position id board) (other : TaskId)
    (message : String) : Announces position id (board.addError other message) := by
  refine ⟨announces.inLog, announces.once.trans (congrArg _ ?_)⟩
  by_cases same : id = other
  · subst same
    simp only [Registry.completion?, get?_addError_self]
    cases board.registry.get? id with
    | none => rfl
    | some record =>
      -- a complete record takes no more errors, an incomplete one has no completion
      cases complete : record.isComplete <;> simp [Option.filter, TrackedTask.addError, complete]
  · simp only [Registry.completion?, get?_addError_of_ne _ _ same]

theorem Announces.complete (announces : Announces position id board) (other : TaskId) :
    Announces position id (board.complete other) := by
  unfold Board.complete
  cases found : board.registry.get? other with
  | none => exact announces
  | some record =>
    simp only
    split
    next => exact announces
    next incomplete =>
      -- Only here is something published, and only for a record that was not complete.
      have finished : (board.registry.modify other TrackedTask.finish).get? other = some record.finish := by
        rw [Registry.get?_modify_self TrackedTask.id_finish, found, Option.map_some]
      refine ⟨Nat.le_trans announces.inLog (by simp [Bus.publish]), ?_⟩
      rw [Bus.announced_publish announces.inLog, announces.once,
        show record.completion.id = other from Registry.id_of_get? found]
      by_cases same : other = id
      · subst same
        rw [Registry.completion?_of_incomplete found (by simpa using incomplete),
          Registry.completion?_of_complete finished rfl, if_pos rfl]
        rfl
      · simp only [Registry.completion?,
          Registry.get?_modify_of_ne TrackedTask.id_finish (Ne.symm same), if_neg same, List.append_nil]

theorem Announces.perform (announces : Announces position id board) (change : Change) :
    Announces position id (board.perform change) := by
  cases change with
  | submit task =>
    exact ⟨announces.inLog, announces.once.trans (by rw [Board.perform, Registry.completion?_submit])⟩
  | _ =>
    exact perform_induction (fun _ _ same => ⟨same.inLog, same.once⟩)
      (fun _ other message _ same => same.addError other message)
      (fun _ other _ same => same.complete other) rfl announces

theorem Announces.performAll (announces : Announces position id board) (changes : List Change) :
    Announces position id (board.performAll changes) :=
  performAll_induction (fun _ change _ same => same.perform change) announces

/-! ## The log of a board -/

/-- The bus of a board changes by what is published only. -/
theorem grows_performAll (board : Board) (changes : List Change) :
    board.bus.Grows (board.performAll changes).bus := by
  refine performAll_induction (P := fun later => board.bus.Grows later.bus) (fun later change _ grows => ?_)
    (.refl board.bus)
  cases change with
  | submit task => exact grows
  | _ =>
    refine perform_induction (P := fun later => board.bus.Grows later.bus) (fun _ _ same => same)
      (fun _ _ _ _ same => same) (fun later other _ same => ?_) rfl grows
    unfold complete
    split
    · exact same
    · split
      · exact same
      · exact same.trans (.publish _ _)

/-- What was announced stays announced. -/
theorem log_performAll (board : Board) (changes : List Change) :
    board.bus.log.toList <+: (board.performAll changes).bus.log.toList :=
  (board.grows_performAll changes).log

theorem closed_performAll (board : Board) (changes : List Change) :
    (board.performAll changes).bus.closed = board.bus.closed :=
  (board.grows_performAll changes).closed

/-- What one task is credited with announces no other. -/
theorem exists_log_perform (board : Board) {change : Change} {id : TaskId} (credited : change.CreditedTo (some id)) :
    ∃ published, (board.perform change).bus.log.toList = board.bus.log.toList ++ published ∧
      ∀ completion ∈ published, completion.id = id := by
  refine perform_induction (P := fun later => ∃ published, later.bus.log.toList = board.bus.log.toList ++ published ∧
    ∀ completion ∈ published, completion.id = id) (fun _ _ same => same) (fun _ _ _ _ same => same) ?_ credited
    ⟨[], (List.append_nil _).symm, nofun⟩
  rintro later other isActive ⟨published, log, own⟩
  cases isActive
  refine ⟨published ++ (((later.registry.get? id).filter (!·.isComplete)).map (·.completion)).toList, ?_, ?_⟩
  · rw [log_complete, log, List.append_assoc]
  · refine List.forall_mem_append.mpr ⟨own, fun completion member => ?_⟩
    obtain ⟨record, found, rfl⟩ := Option.map_eq_some_iff.mp (Option.mem_toList.mp member)
    exact Registry.id_of_get? (Option.filter_eq_some_iff.mp found).1

theorem exists_log_performAll (board : Board) {changes : List Change} {id : TaskId}
    (credited : ∀ change ∈ changes, change.CreditedTo (some id)) :
    ∃ published, (board.performAll changes).bus.log.toList = board.bus.log.toList ++ published ∧
      ∀ completion ∈ published, completion.id = id := by
  induction changes generalizing board with
  | nil => exact ⟨[], (List.append_nil _).symm, nofun⟩
  | cons change changes ih =>
    obtain ⟨first, log, own⟩ := board.exists_log_perform (credited change List.mem_cons_self)
    obtain ⟨more, logLater, ownLater⟩ :=
      ih (board.perform change) fun other member => credited other (List.mem_cons_of_mem _ member)
    refine ⟨first ++ more, ?_, List.forall_mem_append.mpr ⟨own, ownLater⟩⟩
    rw [performAll_cons, logLater, log, List.append_assoc]

/-- What a task is credited with before it is complete announces its completion, if it has one in
the end, and nothing else. -/
theorem log_performAll_of_open (board : Board) {changes : List Change} {id : TaskId}
    (incomplete : board.registry.completion? id = none)
    (credited : ∀ change ∈ changes, change.CreditedTo (some id)) :
    (board.performAll changes).bus.log.toList =
      board.bus.log.toList ++ ((board.performAll changes).registry.completion? id).toList := by
  obtain ⟨published, log, own⟩ := board.exists_log_performAll credited
  have once := ((announces_at_end board incomplete).performAll changes).once
  have all : published.filter (·.id == id) = published :=
    List.filter_eq_self.mpr fun completion member => beq_iff_eq.mpr (own completion member)
  rw [Bus.announced, log, ← Array.length_toList, List.drop_left, all] at once
  rw [log, once]

/-- After any changes of a new board, the completions that were published for a task are one
if it is complete and none otherwise, and it is the completion of its record, which says
that the task failed exactly when there are errors. -/
theorem completions_published_once (bus : Bus) (changes : List Change) :
    let board := ({ bus } : Board).performAll changes
    ∃ published, board.bus.log.toList = bus.log.toList ++ published ∧
      ∀ id,
        published.countP (·.id == id) =
          (if (board.registry.get? id).any (·.isComplete) then 1 else 0) ∧
        ∀ completion ∈ published, completion.id = id →
          ∃ record, board.registry.get? id = some record ∧ record.isComplete = true ∧
            completion = record.completion ∧
            (completion.status = .failed ↔ record.errors ≠ []) := by
  intro board
  obtain ⟨published, log⟩ := log_performAll { bus } changes
  refine ⟨published, log.symm, fun id => ?_⟩
  have start : Announces bus.log.size id { bus } := announces_at_end ({ bus } : Board) rfl
  have announces : Announces bus.log.size id board := start.performAll changes
  have once : published.filter (·.id == id) = (board.registry.completion? id).toList := by
    rw [← announces.once, Bus.announced, ← log, ← Array.length_toList, List.drop_left]
  constructor
  · rw [List.countP_eq_length_filter, once, Registry.completion?]
    cases board.registry.get? id with
    | none => rfl
    | some record => cases complete : record.isComplete <;> simp [Option.filter, complete]
  · intro completion member about
    have due : completion ∈ published.filter (·.id == id) := by simp [member, about]
    rw [once, Option.mem_toList] at due
    obtain ⟨record, found, complete, same⟩ := Registry.completion?_eq_some_iff.mp due
    exact ⟨record, found, complete, same, same ▸ record.status_completion⟩

end Board

end PlanService
